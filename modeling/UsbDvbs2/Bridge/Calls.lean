import UsbDvbs2.Bridge.It9300
import UsbDvbs2.Concurrency.Answers

/-! # Calls of the bridge driver

What the code over `it9300_ctrl_msg` does one at a time, the device being free to
answer a command in any way, and a write on the I2C bus behind the bridge.
-/

namespace Bridge

open Concurrency Program

inductive Call where
  | command (command : Command)
  /-- `++avl_patch_write_count`, and whether a breath is due -/
  | countWrite
  | sleep (ms : Nat)
  /-- a read past the end of what the caller handed over -/
  | outside
  deriving DecidableEq

/-- A command is answered with a code and a payload; what comes of a read outside is
unknown. -/
abbrev Call.Answer : Call → Type
  | .command _ => Int × List UInt8
  | .countWrite => Bool
  | .sleep _ => Unit
  | .outside => Int

abbrev calls : Signature := ⟨Call, Call.Answer⟩

abbrev Code (α : Type) : Type := Program calls α

def call (operation : Call) : Code operation.Answer := perform (S := calls) operation

/-- `it9300_ctrl_msg`: a command that is too long for the buffer is not sent. -/
def it9300CtrlMsg (command : Command) : Code (Int × List UInt8) :=
  if command.oversized then .done (-1, []) else call (.command command)

/-- The commands that were sent, with the codes they were answered with. -/
def sent (trace : List (Performed calls)) : List (Command × Int) :=
  trace.filterMap fun
    | ⟨.command command, answer⟩ => some (command, answer.1)
    | _ => none

/-! ## I2C behind the bridge -/

def maxXferSize : Nat := 64
def cmdI2cWr : UInt8 := 0x03
def cmdGenericI2cWr : UInt8 := 0x2b

/-- What the driver knows of the bridge: `chip_type` and `i2c_bus`. -/
structure Chip where
  chipType : UInt16
  i2cBus : UInt8

def Chip.generic (chip : Chip) : Bool := chip.chipType == 0x9306

/-- The command for a message on the I2C bus, in the form of the chip. -/
def Chip.i2cCommand (chip : Chip) (addr : UInt8) (data : List UInt8) : Command :=
  let mbox := (addr &&& 0x80) >>> 3
  if chip.generic then
    ⟨cmdGenericI2cWr, mbox, [data.length.toUInt8, chip.i2cBus, addr <<< 1] ++ data, 0⟩
  else ⟨cmdI2cWr, mbox, [data.length.toUInt8, addr <<< 1, 0, 0, 0] ++ data, 0⟩

def it9300I2cWrite (chip : Chip) (addr : UInt8) (data : List UInt8) : Code Int :=
  if (if chip.generic then 3 else 5) + data.length > maxXferSize then .done (-1)
  else do
    let answer ← it9300CtrlMsg (chip.i2cCommand addr data)
    pure answer.1

/-- What fits the transfer behind either header is sent: the buffer of the command is
larger. -/
theorem it9300I2cWrite_fits (chip : Chip) (addr : UInt8) {data : List UInt8}
    (fits : 5 + data.length ≤ maxXferSize) : it9300I2cWrite chip addr data =
      call (.command (chip.i2cCommand addr data)) >>= fun answer => pure answer.1 := by
  have within : ¬ (if chip.generic then 3 else 5) + data.length > maxXferSize := by
    split <;> omega
  have small : ¬ (chip.i2cCommand addr data).oversized := by
    have length : (chip.i2cCommand addr data).wbuf.length ≤ 5 + data.length ∧
        (chip.i2cCommand addr data).rlen = 0 := by
      unfold Chip.i2cCommand
      split
      · exact ⟨by simp only [List.length_append, List.length_cons, List.length_nil]; omega, rfl⟩
      · exact ⟨by simp only [List.length_append, List.length_cons, List.length_nil]; omega, rfl⟩
    simp only [Command.oversized, bufLen, reqHdrLen, ackHdrLen, checksumLen, length.2]
    simp only [maxXferSize] at fits
    omega
  rw [it9300I2cWrite, if_neg within, it9300CtrlMsg, if_neg small]

end Bridge
