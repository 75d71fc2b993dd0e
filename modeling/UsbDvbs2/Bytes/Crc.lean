import Mathlib.Data.List.Basic
import UsbDvbs2.Bytes.Tables

/-! # The checksum of a section -/

namespace Bytes

/-- One bit of the CRC, most significant first. -/
def crcBit (crc : UInt32) : UInt32 :=
  if crc &&& 0x80000000 = 0 then crc <<< 1 else (crc <<< 1) ^^^ 0x04c11db7

def crcByte (crc : UInt32) (byte : UInt8) : UInt32 :=
  Nat.repeat crcBit 8 (crc ^^^ (byte.toUInt32 <<< 24))

/-- CRC-32 of MPEG-2. -/
def crc32 (bytes : List UInt8) : UInt32 := bytes.foldl crcByte 0xffffffff

/-- Four bytes. -/
def be32 (bytes : List UInt8) (pos : Nat) : Nat :=
  octet bytes pos * 2 ^ 24 + octet bytes (pos + 1) * 2 ^ 16 + octet bytes (pos + 2) * 2 ^ 8 +
    octet bytes (pos + 3)

/-- The four bytes of a checksum. -/
def crcBytes (crc : UInt32) : List UInt8 :=
  [UInt8.ofNat (crc.toNat / 2 ^ 24), UInt8.ofNat (crc.toNat / 2 ^ 16),
    UInt8.ofNat (crc.toNat / 2 ^ 8), UInt8.ofNat crc.toNat]

/-- The last four bytes are the checksum of the others. -/
def CrcValid (sec : List UInt8) : Prop :=
  (crc32 (sec.take (sec.length - 4))).toNat = be32 sec (sec.length - 4)

instance (sec : List UInt8) : Decidable (CrcValid sec) := inferInstanceAs (Decidable (_ = _))

@[simp] theorem length_crcBytes (crc : UInt32) : (crcBytes crc).length = 4 := rfl

theorem be32_append_right (front back : List UInt8) : be32 (front ++ back) front.length =
    be32 back 0 := by
  have first := octet_append_right front back 0
  rw [Nat.add_zero] at first
  rw [be32, be32, first, octet_append_right, octet_append_right, octet_append_right]

theorem be32_crcBytes (crc : UInt32) : be32 (crcBytes crc) 0 = crc.toNat := by
  have fits := crc.toNat_lt
  simp only [be32, octet, crcBytes, List.getD_cons_zero, List.getD_cons_succ, UInt8.toNat_ofNat']
  omega

/-- A field of 32 bits is read from its four bytes. -/
theorem be32_quarters {bytes : List UInt8} {pos : Nat} (value : UInt32)
    (first : bytes.getD pos 0 = (value >>> 24).toUInt8)
    (second : bytes.getD (pos + 1) 0 = (value >>> 16).toUInt8)
    (third : bytes.getD (pos + 2) 0 = (value >>> 8).toUInt8)
    (fourth : bytes.getD (pos + 3) 0 = value.toUInt8) : be32 bytes pos = value.toNat := by
  have small := UInt32.toNat_lt value
  rw [be32, octet, octet, octet, octet, first, second, third, fourth,
    toNat_shift32 _ 24 (by decide), toNat_shift32 _ 16 (by decide), toNat_shift32 _ 8 (by decide),
    UInt32.toNat_toUInt8]
  change value.toNat / 2 ^ 24 % 256 * 2 ^ 24 + value.toNat / 2 ^ 16 % 256 * 2 ^ 16 +
    value.toNat / 2 ^ 8 % 256 * 2 ^ 8 + value.toNat % 2 ^ 8 = value.toNat
  omega

/-- Four bytes that are the checksum as a number are its bytes. -/
theorem crcBytes_eq {crc : UInt32} {trailer : List UInt8} (size : trailer.length = 4)
    (same : crc.toNat = be32 trailer 0) : crcBytes crc = trailer := by
  obtain ⟨first, second, third, fourth, rfl⟩ := List.length_eq_four.1 size
  have one := first.toNat_lt
  have two := second.toNat_lt
  have three := third.toNat_lt
  have four := fourth.toNat_lt
  simp only [be32, octet, List.getD_cons_zero, List.getD_cons_succ] at same
  simp only [crcBytes, List.cons.injEq, ← UInt8.toNat_inj, UInt8.toNat_ofNat', and_true]
  omega

/-- A body with its checksum behind it is valid. -/
theorem crcValid_append (body : List UInt8) : CrcValid (body ++ crcBytes (crc32 body)) := by
  have size : (body ++ crcBytes (crc32 body)).length - 4 = body.length := by simp
  rw [CrcValid, size, List.take_left' rfl, be32_append_right, be32_crcBytes]

end Bytes
