import UsbDvbs2.Bytes.Checked
import UsbDvbs2.Concurrency.Answers
import UsbDvbs2.Engine.Avl62x1

/-! # The script of a demodulator patch

`avl62x1_load_patch` interprets a script that the patch holds: records with a
condition over thirty-two variables and a command, whose operands and lengths all
come from the patch. A read outside of the patch or of the variables is an
operation of its own, and so is the start of every turn of the loop.
-/

namespace Engine.Patch

open Bytes Concurrency Program Avl62x1

inductive Op where
  | receiver (operation : Engine.Op)
  | setUploadActive (active : Bool)
  | clearWriteCount
  /-- the loop over the script turns, from a position -/
  | turn (start : Nat)
  /-- an access outside of the patch or of the variables -/
  | outside
  /-- a loop that goes on longer than was counted on -/
  | endless

/-- What stands outside is unknown. -/
abbrev Op.Answer : Op → Type
  | .receiver operation => operation.Answer
  | .outside => UInt32
  | _ => Unit

abbrev signature : Signature := ⟨Op, Op.Answer⟩

abbrev Code (α : Type) : Type := Program signature α

def op (operation : Op) : Code operation.Answer := perform (S := signature) operation

def patchVariables : Nat := 32

/-- What the interpreter keeps: the position of the reader, the variables, and whether the
script has ended itself. -/
structure Script where
  pos : Nat
  variableWords : Vector UInt32 patchVariables
  exitSeen : Bool

/-- Code of the interpreter; it ends with a code when something fails. -/
abbrev Run : Type → Type := StateT Script (ExceptT Int Code)

/-! ## Access to the receiver and to the variables -/

/-- Code of the driver, whatever it returns. -/
def driver {α : Type} (code : Engine.Code α) : Run α :=
  fun script => ExceptT.mk do
    let value ← code.carried fun operation => op (.receiver operation)
    pure (.ok (value, script))

/-- Code of the driver that must return zero. -/
def must (code : Engine.Code Int) : Run Unit := do
  let rc ← driver code
  if rc ≠ 0 then throw rc else pure ()

/-- Code of the driver that reads a value. -/
def fetch {α : Type} (code : Engine.Code (Except Int α)) : Run α := do
  match ← driver code with
  | .ok value => pure value
  | .error rc => throw rc

def act (operation : Op) : Run operation.Answer :=
  fun script => ExceptT.mk do
    let answer ← op operation
    pure (.ok (answer, script))

def variableAt (index : UInt32) : Run UInt32 := do
  let script ← get
  match script.variableWords[index.toNat]? with
  | some value => pure value
  | none => act .outside

def setVariable (index value : UInt32) : Run Unit := do
  if inside : index.toNat < patchVariables then
    modify fun script => { script with variableWords := script.variableWords.set index.toNat value }
  else
    let _ ← act .outside
    pure ()

/-! ## Reading the patch -/

section Reader

variable (patch : List UInt8) (size : Nat)

def byteAt (pos : Nat) : Run UInt8 :=
  match patch[pos]? with
  | some byte => pure byte
  | none => do
      let unknown : UInt32 ← act .outside
      pure unknown.toUInt8

def be16At (pos : Nat) : Run UInt16 := do
  let high ← byteAt patch pos
  let low ← byteAt patch (pos + 1)
  pure (high.toUInt16 <<< 8 ||| low.toUInt16)

def be32At (pos : Nat) : Run UInt32 := do
  let first ← byteAt patch pos
  let second ← byteAt patch (pos + 1)
  let third ← byteAt patch (pos + 2)
  let fourth ← byteAt patch (pos + 3)
  pure (first.toUInt32 <<< 24 ||| second.toUInt32 <<< 16 ||| third.toUInt32 <<< 8 |||
    fourth.toUInt32)

/-- Bytes of the patch that are handed on. -/
def bytesAt (pos count : Nat) : Run (List UInt8) :=
  match slice? patch pos count with
  | some bytes => pure bytes
  | none => do
      let _ ← act .outside
      pure []

def moveTo (pos : Nat) : Run Unit := modify fun script => { script with pos }

def readWord : Run UInt32 := do
  let script ← get
  if size < script.pos ∨ size - script.pos < 4 then throw (-2)
  else
    let value ← be32At patch script.pos
    moveTo (script.pos + 4)
    pure value

def skipWords (words : UInt32) : Run Unit := do
  let script ← get
  if size < script.pos ∨ size - script.pos < words.toNat * 4 then throw (-2)
  else moveTo (script.pos + words.toNat * 4)

/-- The words behind a command: as many as the next one says. -/
def skipCounted : Run Unit := do
  let count ← readWord patch size
  skipWords size count

/-- A command with a result names the number of words and the variable. -/
def result : Run (UInt32 × UInt32) := do
  let count ← readWord patch size
  let index ← readWord patch size
  if patchVariables ≤ index.toNat ∨ count = 0 then throw (-2) else pure (count, index)

/-! ## Commands -/

def regArgsAddr : UInt32 := 0x000258
def regDmaStatus : UInt32 := 0x110048
def regDmaCommand : UInt32 := 0x110050
def cmdDma : UInt16 := 21
def cmdCalcCrc : UInt16 := 22
def cmdPing : UInt16 := 23
def cmdDecompress : UInt16 := 24

def readResultValue (length reg : UInt32) : Engine.Code (Except Int UInt32) :=
  if length = 4 then read32 reg
  else if length = 2 then do
    let value ← read16 reg
    pure (value.map UInt16.toUInt32)
  else if length = 1 then do
    let value ← read8 reg
    pure (value.map UInt8.toUInt32)
  else pure (.error (-2))

/-- The records of a packed block, one after the other. -/
def packedRecords (destination : UInt32) : Nat → Nat → Run Unit
  | 0, _ => pure ()
  | records + 1, pos =>
      if size < pos ∨ size - pos < 4 then throw (-2)
      else do
        let offset ← be16At patch pos
        let length ← be16At patch (pos + 2)
        if size < pos + 4 ∨ size - (pos + 4) < length.toNat then throw (-2)
        else
          let data ← bytesAt patch (pos + 4) length.toNat
          must (write (destination + offset.toUInt32) data)
          packedRecords destination records (pos + 4 + length.toNat)

/-- The field with the length of the address offset is passed over. -/
def loadPacked (dataOffsetWords sourceWords : UInt32) : Run Unit :=
  let pos := (dataOffsetWords.toNat + sourceWords.toNat) * 4
  if size < pos ∨ size - pos < 8 then throw (-2)
  else do
    let records ← be16At patch (pos + 2)
    let destination ← be32At patch (pos + 4)
    packedRecords patch size destination records.toNat (pos + 8)

/-- The code of the ping is overwritten by that of the words behind it, so that the variable
is always set. -/
def ping : Run Unit := do
  let _ ← driver (sendCommand cmdPing)
  let (count, index) ← result patch size
  setVariable index 1
  skipWords size (count - 1)

def validateCrc (argsAddr : UInt32) : Run Unit := do
  let expected ← readWord patch size
  let start ← readWord patch size
  let length ← readWord patch size
  must (untilFailure [write32 regArgsAddr argsAddr, write32 argsAddr start,
    write32 (argsAddr + 4) length, sendCommand cmdCalcCrc])
  let value ← fetch (read32 (argsAddr + 8))
  let (count, index) ← result patch size
  setVariable index (if value = expected then 1 else 0)
  skipWords size (count - 1)

def load (dataOffsetWords : UInt32) : Run Unit := do
  let words ← readWord patch size
  let destination ← readWord patch size
  let offset ← readWord patch size
  let source := (dataOffsetWords.toNat + offset.toNat) * 4
  if size < source ∨ size - source < words.toNat * 4 then throw (-2)
  else
    let data ← bytesAt patch source (words.toNat * 4)
    must (write destination data)
    skipCounted patch size

def loadImmediate : Run Unit := do
  let width ← readWord patch size
  let destination ← readWord patch size
  let value ← readWord patch size
  must (if width = 4 then write32 destination value
    else if width = 2 then write16 destination value.toUInt16
    else if width = 1 then write8 destination value.toUInt8
    else .done (-2))
  skipCounted patch size

def loadPackedCommand (dataOffsetWords : UInt32) : Run Unit := do
  let _ ← readWord patch size
  let source ← readWord patch size
  loadPacked patch size dataOffsetWords source
  skipCounted patch size

def readCommand : Run Unit := do
  let length ← readWord patch size
  let reg ← readWord patch size
  let (count, index) ← result patch size
  let value ← fetch (readResultValue length reg)
  setVariable index value
  skipWords size (count - 1)

/-- The descriptors behind a command, of twelve bytes each. -/
def descriptors (count : UInt32) : Run (List UInt8) := do
  let script ← get
  if size < script.pos ∨ size - script.pos < count.toNat * 12 then throw (-2)
  else bytesAt patch script.pos (count.toNat * 12)

def passDescriptors (count : UInt32) : Run Unit := do
  let script ← get
  moveTo (script.pos + count.toNat * 12)

def dma : Run Unit := do
  let address ← readWord patch size
  let count ← readWord patch size
  let data ← descriptors patch size count
  must (write address data)
  passDescriptors count
  must (untilFailure [write32 regArgsAddr address, sendCommand cmdDma])
  skipCounted patch size

def statusTurn (wanted : UInt32 → Bool) (again : Engine.Code Int) : Engine.Code Int := do
  sleep 10
  ifRead (read32 regDmaStatus) fun value => if wanted value then .done 0 else again

/-- Look at the status until it is as wanted, `tries` times more at most. -/
def pollStatus (wanted : UInt32 → Bool) : Nat → Engine.Code Int
  | 0 => statusTurn wanted (.done (-3))
  | tries + 1 => statusTurn wanted (pollStatus wanted tries)

/-- Nothing is written when there are no descriptors. -/
def writeDescriptors (address count : UInt32) (data : List UInt8) : Run Unit :=
  if count ≠ 0 then must (write address data) else pure ()

def dmaHw : Run Unit := do
  let address ← readWord patch size
  let count ← readWord patch size
  let data ← descriptors patch size count
  writeDescriptors address count data
  passDescriptors count
  must (pollStatus (fun value => value &&& 1 != 0) 20)
  must (write32 regDmaCommand address)
  must (pollStatus (fun value => value &&& 0x100 == 0) 20)
  skipCounted patch size

def extract (argsAddr : UInt32) : Run Unit := do
  let kind ← readWord patch size
  let source ← readWord patch size
  let destination ← readWord patch size
  must (untilFailure [write32 regArgsAddr argsAddr, write32 argsAddr kind,
    write32 (argsAddr + 4) source, write32 (argsAddr + 8) destination,
    sendCommand cmdDecompress])
  skipCounted patch size

def reset (level : UInt32) : Run Unit := do
  must (write32 regCpuReset level)
  skipCounted patch size

def setCondition : Run Unit := do
  let value ← readWord patch size
  let (count, index) ← result patch size
  setVariable index value
  skipWords size (count - 1)

def exit (scriptEnd : Nat) : Run Unit := do
  let _ ← readWord patch size
  modify fun script => { script with pos := scriptEnd, exitSeen := true }

def valueTurn (width reg wanted : UInt32) (again : Engine.Code Int) : Engine.Code Int :=
  ifRead (readResultValue width reg) fun value => if value = wanted then .done 0 else again

/-- Read until the value is the one looked for, `polls` times more at most. -/
def pollValue (width reg wanted : UInt32) : Nat → Engine.Code Int
  | 0 => valueTurn width reg wanted (.done (-3))
  | polls + 1 => valueTurn width reg wanted do
      sleep 10
      pollValue width reg wanted polls

def poll : Run Unit := do
  let width ← readWord patch size
  let reg ← readWord patch size
  let wanted ← readWord patch size
  let polls ← readWord patch size
  must (pollValue width reg wanted polls.toNat)
  skipCounted patch size

def runPatchCommand (scriptEnd : Nat) (dataOffsetWords argsAddr command : UInt32) : Run Unit :=
  match command.toNat with
  | 0 => validateCrc patch size argsAddr
  | 1 => ping patch size
  | 2 => load patch size dataOffsetWords
  | 3 => dma patch size
  | 4 => extract patch size argsAddr
  | 5 => reset patch size 1
  | 6 => reset patch size 0
  | 7 => loadImmediate patch size
  | 8 => readCommand patch size
  | 9 => dmaHw patch size
  | 10 => setCondition patch size
  | 11 => exit patch size scriptEnd
  | 12 => poll patch size
  | 13 => loadPackedCommand patch size dataOffsetWords
  | _ => throw (-2)

/-! ## Records -/

def opLoad : UInt8 := 0
def opAnd : UInt8 := 1
def opOr : UInt8 := 2
def opBitAnd : UInt8 := 3
def opBitOr : UInt8 := 4
def opEquals : UInt8 := 5
def opStore : UInt8 := 6
def opNotEquals : UInt8 := 7

def truth (holds : Bool) : UInt32 := if holds then 1 else 0

/-- The operand itself, or the variable that it names. -/
def addressed (mode binary : UInt8) (operand : UInt32) : Run UInt32 :=
  if mode = 0 ∧ binary ≠ opStore then
    if patchVariables ≤ operand.toNat then throw (-2) else variableAt operand
  else pure operand

def unaryApplied (unary : UInt8) (operand : UInt32) : Run UInt32 :=
  if unary = 1 then pure (truth (operand == 0))
  else if unary = 2 then pure (~~~operand)
  else if unary ≠ 0 then throw (-2)
  else pure operand

def binaryApplied (binary : UInt8) (condition operand : UInt32) : Run UInt32 :=
  if binary = opLoad then pure operand
  else if binary = opStore then
    if patchVariables ≤ operand.toNat then throw (-2)
    else do
      setVariable operand condition
      pure condition
  else if binary = opAnd then pure (truth (condition != 0 && operand != 0))
  else if binary = opOr then pure (truth (condition != 0 || operand != 0))
  else if binary = opBitAnd then pure (condition &&& operand)
  else if binary = opBitOr then pure (condition ||| operand)
  else if binary = opEquals then pure (truth (condition == operand))
  else if binary = opNotEquals then pure (truth (condition != operand))
  else throw (-2)

/-- What a condition makes of the value so far. -/
def conditionWord (condition : UInt32) : Run UInt32 := do
  let operation ← readWord patch size
  let operand ← readWord patch size
  let unary := (operation >>> 8).toUInt8
  let binary := operation.toUInt8
  let mode := ((operation >>> 16) &&& 3).toUInt8
  let value ← addressed mode binary operand
  let value ← unaryApplied unary value
  binaryApplied binary condition value

def conditions : Nat → UInt32 → Run UInt32
  | 0, condition => pure condition
  | words + 1, condition => do
      let next ← conditionWord patch size condition
      conditions words next

/-- A record without conditions is run. -/
def recordCondition (conditionWords : UInt32) : Run UInt32 :=
  if conditionWords = 0 then pure 1 else conditions patch size conditionWords.toNat 0

/-- One turn of the loop: a record is run, or passed over if its condition is zero. -/
def scriptTurn (scriptEnd : Nat) (dataOffsetWords argsAddr : UInt32) : Run Unit := do
  let script ← get
  let _ ← act (.turn script.pos)
  let recordWords ← readWord patch size
  if recordWords = 0 then throw (-2)
  else
    let conditionWords ← readWord patch size
    let nextRecord := script.pos + recordWords.toNat * 4
    if scriptEnd < nextRecord then throw (-2)
    else
      let condition ← recordCondition patch size conditionWords
      if condition = 0 then moveTo nextRecord
      else
        let command ← readWord patch size
        runPatchCommand patch size scriptEnd dataOffsetWords argsAddr command

/-- The loop over the script, of which `turns` more turns are counted on. -/
def scriptLoop (scriptEnd : Nat) (dataOffsetWords argsAddr : UInt32) : Nat → Run Unit
  | 0 => do
      let script ← get
      if script.pos < scriptEnd ∧ script.exitSeen = false then
        let _ ← act .endless
        pure ()
      else pure ()
  | turns + 1 => do
      let script ← get
      if script.pos < scriptEnd ∧ script.exitSeen = false then
        scriptTurn patch size scriptEnd dataOffsetWords argsAddr
        scriptLoop scriptEnd dataOffsetWords argsAddr turns
      else pure ()

/-- The script between the reserved words and the data; it must end where it says. -/
def runScript (dataOffsetWords argsAddr : UInt32) : Run Unit := do
  let reservedWords ← readWord patch size
  skipWords size reservedWords
  let scriptWords ← readWord patch size
  let start ← get
  let scriptEnd := start.pos + scriptWords.toNat * 4
  if size < scriptEnd ∨ scriptEnd ≠ dataOffsetWords.toNat * 4 then throw (-2)
  else
    scriptLoop patch size scriptEnd dataOffsetWords argsAddr size
    let final ← get
    if final.pos = scriptEnd then pure () else throw (-2)

end Reader

/-! ## The whole patch -/

def avl62x1ChipId : UInt32 := 0x62615ca8

/-- `avl62x1_patch_info`. -/
structure Info where
  words : UInt32
  standard : UInt32
  argsAddr : UInt32
  dataOffsetWords : UInt32
  major : UInt8
  minor : UInt8
  build : UInt16
  chipId : UInt32

/-- `avl62x1_parse_patch`. -/
def parsePatch (patch : List UInt8) : Run (Except Int Info) :=
  if patch.length < 40 then pure (.error (-1))
  else do
    let words ← be32At patch 4
    let standard ← be32At patch 8
    let argsAddr ← be32At patch 12
    let dataOffsetWords ← be32At patch 16
    let major ← byteAt patch 24
    let minor ← byteAt patch 25
    let build ← be16At patch 26
    let chipId ← be32At patch 28
    if patch.length < words.toNat * 4 ∨ words ≤ dataOffsetWords then pure (.error (-2))
    else pure (.ok ⟨words, standard, argsAddr, dataOffsetWords, major, minor, build, chipId⟩)

def loadBody (patch : List UInt8) : Run Unit := do
  match ← parsePatch patch with
  | .error _ => throw (-2)
  | .ok info =>
      if info.chipId ≠ avl62x1ChipId ∨ info.minor ≠ 8 then throw (-2)
      else
        moveTo 20
        runScript patch (info.words.toNat * 4) info.dataOffsetWords info.argsAddr

def avl62x1LoadPatch (patch : List UInt8) : Code Int := do
  op (.setUploadActive true)
  op .clearWriteCount
  let ended ← (loadBody patch ⟨0, .replicate patchVariables 0, false⟩).run
  op (.setUploadActive false)
  match ended with
  | .ok _ => pure 0
  | .error rc => pure rc

end Engine.Patch
