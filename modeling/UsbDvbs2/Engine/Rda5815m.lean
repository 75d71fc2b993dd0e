import UsbDvbs2.Engine.Avl62x1

/-! # The RDA5815M tuner

Its registers are reached through the demodulator's I2C repeater, one message
for each byte.
-/

namespace Engine.Rda5815m

open Concurrency Program

def writeReg (reg value : UInt8) : Code Int := op (.tunerWrite reg value)

/-- The recovered power-up sequence. -/
def initTable : List (UInt8 × UInt8) :=
  [(0x1a, 0x13), (0x41, 0x53), (0x38, 0x9b), (0x39, 0x15), (0x3a, 0x00), (0x3b, 0x00),
  (0x3c, 0x0c), (0x0c, 0xe2), (0x2e, 0x6f), (0x72, 0x07), (0x73, 0x10), (0x74, 0x71),
  (0x75, 0x06), (0x76, 0x40), (0x77, 0x89), (0x79, 0x04), (0x7a, 0x2a), (0x7b, 0xaa),
  (0x7c, 0xab), (0x2f, 0x57), (0x0d, 0x70), (0x18, 0x4b), (0x30, 0xff), (0x5c, 0xff),
  (0x65, 0x00), (0x70, 0x3f), (0x71, 0x3f), (0x53, 0xa8), (0x46, 0x21), (0x47, 0x84),
  (0x48, 0x10), (0x49, 0x08), (0x60, 0x80), (0x61, 0x80), (0x6a, 0x08), (0x6b, 0x63),
  (0x69, 0xf8), (0x57, 0x64), (0x05, 0xaa), (0x06, 0xaa), (0x15, 0xae), (0x4a, 0x67),
  (0x4b, 0x77), (0x4f, 0x40), (0x5b, 0x20), (0x16, 0x0c), (0x18, 0x0c), (0x30, 0x1c),
  (0x5c, 0x2c), (0x6c, 0x3c), (0x6e, 0x3c), (0x1b, 0x7c), (0x1d, 0xbd), (0x1f, 0xbd),
  (0x21, 0xbe), (0x23, 0xbe), (0x25, 0xfe), (0x27, 0xff), (0x29, 0xff), (0xb3, 0xff),
  (0xb5, 0xff), (0x17, 0xf0), (0x19, 0xf0), (0x31, 0xf0), (0x5d, 0xf0), (0x6d, 0xf0),
  (0x6f, 0xf1), (0x1c, 0xf5), (0x1e, 0x35), (0x20, 0x79), (0x22, 0x9d), (0x24, 0xbe),
  (0x26, 0xbe), (0x28, 0xbe), (0x2a, 0xcf), (0xb4, 0xdf), (0xb6, 0x0f), (0xb7, 0x15),
  (0xb9, 0x6c), (0xbb, 0x63), (0xbd, 0x5a), (0xbf, 0x5a), (0xc1, 0x55), (0xc3, 0x55),
  (0xc5, 0x47), (0xa3, 0x53), (0xa5, 0x4f), (0xa7, 0x4e), (0xa9, 0x4e), (0xab, 0x54),
  (0xad, 0x31), (0xaf, 0x43), (0xb1, 0x9f), (0xb8, 0x6c), (0xba, 0x92), (0xbc, 0x8a),
  (0xbe, 0x8a), (0xc0, 0x82), (0xc2, 0x93), (0xc4, 0x85), (0xc6, 0x77), (0xa4, 0x82),
  (0xa6, 0x7e), (0xa8, 0x7d), (0xaa, 0x6f), (0xac, 0x65), (0xae, 0x43), (0xb0, 0x9f),
  (0xb2, 0xf0), (0x81, 0x92), (0x82, 0xb4), (0x83, 0xb3), (0x84, 0xac), (0x85, 0xba),
  (0x86, 0xbc), (0x87, 0xaf), (0x88, 0xa2), (0x89, 0xac), (0x8a, 0xa9), (0x8b, 0x9b),
  (0x8c, 0x7d), (0x8d, 0x74), (0x8e, 0x9f), (0x8f, 0xf0), (0x90, 0x15), (0x91, 0x39),
  (0x92, 0x30), (0x93, 0x27), (0x94, 0x29), (0x95, 0x0d), (0x96, 0x10), (0x97, 0x1e),
  (0x98, 0x1a), (0x99, 0x19), (0x9a, 0x19), (0x9b, 0x32), (0x9c, 0x1f), (0x9d, 0x31),
  (0x9e, 0x43)]

def init : Code Int := do
  sleep 1
  let rc ← untilFailure [writeReg 0x04 0x04, writeReg 0x04 0x05]
  if rc ≠ 0 then pure (-1)
  else
    ifZero (untilFailure (initTable.map fun entry => writeReg entry.1 entry.2)) do
      sleep 10
      pure 0

/-- The low-pass filter setting for a symbol rate. -/
def bandwidth (symbolRateKsps : UInt32) : UInt8 :=
  if symbolRateKsps ≤ 3999 then 0x44
  else 0x40 ||| (min (symbolRateKsps / 1000) 0x28).toUInt8

def tune (frequencyKhz symbolRateKsps : UInt32) (loopThrough : Bool) : Code Int :=
  if frequencyKhz < 250000 ∨ frequencyKhz > 2300000 then .done (-1)
  else
    let word := (frequencyKhz / 1000) * 0x12f68
    ifZero (untilFailure [
      writeReg 0x04 (if loopThrough then 0xc1 else 0xe1),
      writeReg 0x2b 0x95,
      writeReg 0x07 (word >>> 24).toUInt8,
      writeReg 0x08 (word >>> 16).toUInt8,
      writeReg 0x09 (word >>> 8).toUInt8,
      writeReg 0x0a word.toUInt8,
      writeReg 0x0b (bandwidth symbolRateKsps),
      writeReg 0x04 (if loopThrough then 0xc3 else 0xe3),
      writeReg 0x2b 0x97]) do
      sleep 5
      pure 0

@[simp] theorem plain_writeReg (reg value : UInt8) : Plain (writeReg reg value) :=
  plain_op.mpr id

theorem plain_init : Plain init := by
  apply Plain.bind (plain_sleep 1)
  intro slept
  apply Plain.bind (.untilFailure (by simp))
  intro rc
  apply Plain.ite (.done _)
  apply Plain.ifZero (.untilFailure _) (.bind (plain_sleep 10) fun _ => .done _)
  intro code member
  obtain ⟨entry, _, rfl⟩ := List.mem_map.mp member
  exact plain_writeReg ..

theorem plain_tune (frequencyKhz symbolRateKsps : UInt32) (loopThrough : Bool) :
    Plain (tune frequencyKhz symbolRateKsps loopThrough) :=
  .ite (.done _) (.ifZero (.untilFailure (by simp))
    (.bind (plain_sleep 5) fun _ => .done _))

end Engine.Rda5815m
