import Mathlib.Algebra.Group.Nat.Defs
import UsbDvbs2.Bytes.Entries

/-! # Tables laid out in bytes

Fields of a concatenation, fields written back, and the entry loop over items
that lie one behind the other.
-/

namespace Bytes

theorem octet_lt (bytes : List UInt8) (pos : Nat) : octet bytes pos < 256 := UInt8.toNat_lt _

theorem octet_append {bytes : List UInt8} {pos : Nat} (inside : pos < bytes.length)
    (more : List UInt8) : octet (bytes ++ more) pos = octet bytes pos := by
  rw [octet, octet, List.getD_eq_getElem?_getD, List.getElem?_append_left inside,
    List.getD_eq_getElem?_getD]

theorem octet_append_right (front back : List UInt8) (pos : Nat) :
    octet (front ++ back) (front.length + pos) = octet back pos := by
  rw [octet, octet, List.getD_eq_getElem?_getD, List.getElem?_append_right (by omega),
    Nat.add_sub_cancel_left, List.getD_eq_getElem?_getD]

theorem be16_append {bytes : List UInt8} {pos : Nat} (inside : pos + 1 < bytes.length)
    (more : List UInt8) : be16 (bytes ++ more) pos = be16 bytes pos := by
  simp only [be16, List.getD_eq_getElem?_getD]
  rw [List.getElem?_append_left (by omega), List.getElem?_append_left inside]

theorem be12_append {bytes : List UInt8} {pos : Nat} (inside : pos + 1 < bytes.length)
    (more : List UInt8) : be12 (bytes ++ more) pos = be12 bytes pos := by
  rw [be12, be12, octet_append (by omega), octet_append inside]

theorem be12_append_right (front back : List UInt8) (pos : Nat) :
    be12 (front ++ back) (front.length + pos) = be12 back pos := by
  rw [be12, be12, octet_append_right, Nat.add_assoc, octet_append_right]

theorem be13_append {bytes : List UInt8} {pos : Nat} (inside : pos + 1 < bytes.length)
    (more : List UInt8) : be13 (bytes ++ more) pos = be13 bytes pos := by
  simp only [be13, List.getD_eq_getElem?_getD]
  rw [List.getElem?_append_left (by omega), List.getElem?_append_left inside]

theorem be13_append_right (front back : List UInt8) (pos : Nat) :
    be13 (front ++ back) (front.length + pos) = be13 back pos := by
  simp only [be13, List.getD_eq_getElem?_getD]
  rw [List.getElem?_append_right (by omega), List.getElem?_append_right (by omega),
    Nat.add_assoc, Nat.add_sub_cancel_left, Nat.add_sub_cancel_left]

theorem be12_lt (bytes : List UInt8) (pos : Nat) : be12 bytes pos < 4096 := by
  have low := octet_lt bytes (pos + 1)
  rw [be12]
  omega

/-- `size` bytes at a position. -/
def slice (bytes : List UInt8) (pos size : Nat) : List UInt8 := (bytes.drop pos).take size

theorem slice_middle (front item back : List UInt8) :
    slice (front ++ (item ++ back)) front.length item.length = item := by
  rw [slice, List.drop_left' rfl, List.take_left' rfl]

theorem octet_middle {front item back : List UInt8} {pos : Nat} (inside : pos < item.length) :
    octet (front ++ (item ++ back)) (front.length + pos) = octet item pos := by
  rw [octet_append_right, octet_append inside]

theorem be12_middle {front item back : List UInt8} {pos : Nat} (inside : pos + 1 < item.length) :
    be12 (front ++ (item ++ back)) (front.length + pos) = be12 item pos := by
  rw [be12_append_right, be12_append inside]

/-- A field of a slice is the field of the whole. -/
theorem be12_slice {bytes : List UInt8} {pos size place : Nat} (inside : place + 1 < size) :
    be12 (slice bytes pos size) place = be12 bytes (pos + place) := by
  simp only [be12, octet, slice, List.getD_eq_getElem?_getD]
  rw [List.getElem?_take_of_lt (by omega), List.getElem?_take_of_lt inside, List.getElem?_drop,
    List.getElem?_drop, Nat.add_assoc]

theorem be13_slice {bytes : List UInt8} {pos size place : Nat} (inside : place + 1 < size) :
    be13 (slice bytes pos size) place = be13 bytes (pos + place) := by
  simp only [be13, slice, List.getD_eq_getElem?_getD]
  rw [List.getElem?_take_of_lt (by omega), List.getElem?_take_of_lt inside, List.getElem?_drop,
    List.getElem?_drop, Nat.add_assoc]

theorem getD_slice {bytes : List UInt8} {pos size place : Nat} (inside : place < size) :
    (slice bytes pos size).getD place 0 = bytes.getD (pos + place) 0 := by
  rw [slice, List.getD_eq_getElem?_getD, List.getElem?_take_of_lt inside, List.getElem?_drop,
    List.getD_eq_getElem?_getD]

theorem octet_slice {bytes : List UInt8} {pos size place : Nat} (inside : place < size) :
    octet (slice bytes pos size) place = octet bytes (pos + place) := by
  rw [octet, getD_slice inside, octet]

theorem be16_slice {bytes : List UInt8} {pos size place : Nat} (inside : place + 1 < size) :
    be16 (slice bytes pos size) place = be16 bytes (pos + place) := by
  have before : place < size := Nat.lt_of_succ_lt inside
  rw [be16, getD_slice before, getD_slice inside, be16, Nat.add_assoc]

theorem slice_slice {bytes : List UInt8} {pos size place length : Nat}
    (inside : place + length ≤ size) :
    slice (slice bytes pos size) place length = slice bytes (pos + place) length := by
  rw [slice, slice, List.drop_take, List.take_take, List.drop_drop, slice,
    Nat.min_eq_left (by omega)]

theorem length_slice {bytes : List UInt8} {pos size : Nat} (inside : pos + size ≤ bytes.length) :
    (slice bytes pos size).length = size := by
  rw [slice, List.length_take_of_le]
  rw [List.length_drop]
  omega

theorem drop_slice (bytes : List UInt8) (pos skip size : Nat) :
    (slice bytes pos (skip + size)).drop skip = slice bytes (pos + skip) size := by
  rw [slice, List.drop_take, List.drop_drop, slice, Nat.add_sub_cancel_left]

/-! ## Writing a length -/

/-- The low 12 bits of two bytes written over. -/
def setBe12 (bytes : List UInt8) (pos value : Nat) : List UInt8 :=
  (bytes.set pos (UInt8.ofNat (octet bytes pos / 16 * 16 + value / 256 % 16))).set (pos + 1)
    (UInt8.ofNat value)

@[simp] theorem length_setBe12 (bytes : List UInt8) (pos value : Nat) :
    (setBe12 bytes pos value).length = bytes.length := by
  rw [setBe12, List.length_set, List.length_set]

theorem octet_set {bytes : List UInt8} {pos : Nat} (inside : pos < bytes.length) (byte : UInt8) :
    octet (bytes.set pos byte) pos = byte.toNat := by
  rw [octet, List.getD_eq_getElem?_getD, List.getElem?_set_self inside, Option.getD_some]

theorem octet_set_ne {pos other : Nat} (apart : other ≠ pos) (bytes : List UInt8) (byte : UInt8) :
    octet (bytes.set pos byte) other = octet bytes other := by
  rw [octet, octet, List.getD_eq_getElem?_getD, List.getElem?_set_ne apart.symm,
    List.getD_eq_getElem?_getD]

theorem octet_setBe12_ne {pos other : Nat} (first : other ≠ pos) (second : other ≠ pos + 1)
    (bytes : List UInt8) (value : Nat) :
    octet (setBe12 bytes pos value) other = octet bytes other := by
  rw [setBe12, octet_set_ne second, octet_set_ne first]

theorem be12_setBe12 {bytes : List UInt8} {pos value : Nat} (inside : pos + 1 < bytes.length)
    (fits : value < 4096) : be12 (setBe12 bytes pos value) pos = value := by
  have high := octet_lt bytes pos
  have top : octet (setBe12 bytes pos value) pos =
      octet bytes pos / 16 * 16 + value / 256 % 16 := by
    rw [setBe12, octet_set_ne (by omega), octet_set (by omega), UInt8.toNat_ofNat']
    omega
  have low : octet (setBe12 bytes pos value) (pos + 1) = value % 256 := by
    rw [setBe12, octet_set (by rw [List.length_set]; exact inside), UInt8.toNat_ofNat']
  rw [be12, top, low]
  omega

theorem be12_setBe12_ne {pos other : Nat} (apart : other + 1 < pos ∨ pos + 1 < other)
    (bytes : List UInt8) (value : Nat) :
    be12 (setBe12 bytes pos value) other = be12 bytes other := by
  rw [be12, be12, octet_setBe12_ne (by omega) (by omega), octet_setBe12_ne (by omega) (by omega)]

theorem be16_setBe12_ne {pos other : Nat} (apart : other + 1 < pos ∨ pos + 1 < other)
    (bytes : List UInt8) (value : Nat) :
    be16 (setBe12 bytes pos value) other = be16 bytes other := by
  simp only [be16, setBe12, List.getD_eq_getElem?_getD]
  rw [List.getElem?_set_ne (by omega), List.getElem?_set_ne (by omega),
    List.getElem?_set_ne (by omega), List.getElem?_set_ne (by omega)]

theorem be13_setBe12_ne {pos other : Nat} (apart : other + 1 < pos ∨ pos + 1 < other)
    (bytes : List UInt8) (value : Nat) :
    be13 (setBe12 bytes pos value) other = be13 bytes other := by
  simp only [be13, setBe12, List.getD_eq_getElem?_getD]
  rw [List.getElem?_set_ne (by omega), List.getElem?_set_ne (by omega),
    List.getElem?_set_ne (by omega), List.getElem?_set_ne (by omega)]

/-- Writing the length that is there changes nothing. -/
theorem setBe12_self {bytes : List UInt8} {pos : Nat} (inside : pos + 1 < bytes.length) :
    setBe12 bytes pos (be12 bytes pos) = bytes := by
  have high := octet_lt bytes pos
  have low := octet_lt bytes (pos + 1)
  have whole : ∀ {place : Nat}, (inside : place < bytes.length) →
      UInt8.ofNat (octet bytes place) = bytes[place] := by
    intro place inside
    rw [octet, List.getD_eq_getElem?_getD, List.getElem?_eq_getElem inside, Option.getD_some,
      UInt8.ofNat_toNat]
  have first : octet bytes pos / 16 * 16 + be12 bytes pos / 256 % 16 = octet bytes pos := by
    rw [be12]
    omega
  have second : UInt8.ofNat (be12 bytes pos) = UInt8.ofNat (octet bytes (pos + 1)) := by
    rw [← UInt8.toNat_inj, UInt8.toNat_ofNat', UInt8.toNat_ofNat', be12]
    omega
  rw [setBe12, first, second, whole inside, whole (by omega), List.set_getElem_self,
    List.set_getElem_self]

theorem setBe12_append {bytes : List UInt8} {pos : Nat} (inside : pos + 1 < bytes.length)
    (more : List UInt8) (value : Nat) :
    setBe12 (bytes ++ more) pos value = setBe12 bytes pos value ++ more := by
  rw [setBe12, setBe12, octet_append (by omega), List.set_append_left _ _ (by omega),
    List.set_append_left _ _ (by rw [List.length_set]; exact inside)]

theorem setBe12_append_right (front back : List UInt8) (pos value : Nat) :
    setBe12 (front ++ back) (front.length + pos) value = front ++ setBe12 back pos value := by
  rw [setBe12, setBe12, octet_append_right, List.set_append_right _ _ (Nat.le_add_right _ _),
    Nat.add_sub_cancel_left, List.set_append_right _ _ (by omega)]
  congr 2
  omega

/-! ## Fields that are written whole -/

/-- Two bytes joined. -/
theorem toNat_join (high low : UInt8) :
    (high.toUInt16 <<< 8 ||| low.toUInt16).toNat = high.toNat * 256 + low.toNat := by
  have small := UInt8.toNat_lt low
  have limit := UInt8.toNat_lt high
  have shifted : high.toNat <<< ((8 : UInt16).toNat % 16) % 2 ^ 16 = high.toNat <<< 8 := by
    change high.toNat <<< 8 % 2 ^ 16 = high.toNat <<< 8
    rw [Nat.shiftLeft_eq]
    exact Nat.mod_eq_of_lt (by omega)
  rw [UInt16.toNat_or, UInt16.toNat_shiftLeft, UInt8.toNat_toUInt16, UInt8.toNat_toUInt16, shifted,
    ← Nat.shiftLeft_add_eq_or_of_lt small, Nat.shiftLeft_eq]

/-- A field of 16 bits, written and read back. -/
theorem be16_written {bytes : List UInt8} {pos : Nat} (value : UInt16)
    (high : bytes.getD pos 0 = UInt8.ofNat (value.toNat / 256))
    (low : bytes.getD (pos + 1) 0 = UInt8.ofNat value.toNat) : be16 bytes pos = value := by
  have small := UInt16.toNat_lt value
  rw [be16, high, low, ← UInt16.toNat_inj, toNat_join, UInt8.toNat_ofNat', UInt8.toNat_ofNat']
  omega

/-- The five low bits of a byte. -/
theorem toUInt16_and (byte : UInt8) :
    byte.toUInt16 &&& 0x1f = (UInt8.ofNat (byte.toNat % 32)).toUInt16 := by
  have five : (0x1f : UInt16).toNat = 2 ^ 5 - 1 := rfl
  rw [← UInt16.toNat_inj, UInt16.toNat_and, UInt8.toNat_toUInt16, UInt8.toNat_toUInt16,
    UInt8.toNat_ofNat', five, Nat.and_two_pow_sub_one_eq_mod]
  omega

theorem toNat_be13 (bytes : List UInt8) (pos : Nat) :
    (be13 bytes pos).toNat = octet bytes pos % 32 * 256 + octet bytes (pos + 1) := by
  rw [be13, toUInt16_and, toNat_join, UInt8.toNat_ofNat', octet, octet]
  omega

/-- A pid with the three bits in front of it. -/
theorem be13_written {bytes : List UInt8} {pos bits : Nat} {value : UInt16}
    (fits : value.toNat < 2 ^ 13)
    (high : bytes.getD pos 0 = UInt8.ofNat (32 * bits + value.toNat / 256 % 32))
    (low : bytes.getD (pos + 1) 0 = UInt8.ofNat value.toNat) : be13 bytes pos = value := by
  rw [← UInt16.toNat_inj, toNat_be13, octet, octet, high, low, UInt8.toNat_ofNat',
    UInt8.toNat_ofNat']
  omega

/-! ## Fields cut by shifts -/

theorem toNat_shift16 (value : UInt16) : ((value >>> 8).toUInt8).toNat = value.toNat / 256 := by
  have small := UInt16.toNat_lt value
  have shifted : (value >>> 8).toNat = value.toNat / 256 := by
    rw [UInt16.toNat_shiftRight]
    exact Nat.shiftRight_eq_div_pow _ 8
  rw [UInt16.toNat_toUInt8, shifted]
  omega

/-- A field of 16 bits is read from its two bytes. -/
theorem be16_halves {bytes : List UInt8} {pos : Nat} (value : UInt16)
    (high : bytes.getD pos 0 = (value >>> 8).toUInt8)
    (low : bytes.getD (pos + 1) 0 = value.toUInt8) : be16 bytes pos = value := by
  rw [be16, high, low, ← UInt16.toNat_inj, toNat_join, toNat_shift16, UInt16.toNat_toUInt8]
  exact Nat.div_add_mod' _ 256

theorem toNat_shift32 (value count : UInt32) (few : count.toNat < 32) :
    ((value >>> count).toUInt8).toNat = value.toNat / 2 ^ count.toNat % 256 := by
  rw [UInt32.toNat_toUInt8, UInt32.toNat_shiftRight, Nat.shiftRight_eq_div_pow,
    Nat.mod_eq_of_lt few]

/-! ## Items one behind the other -/

section Items

variable {α : Type} (encode : α → List UInt8)

/-- Where the items begin. -/
def offsets (start : Nat) : List α → List Nat
  | [] => []
  | item :: items => start :: offsets (start + (encode item).length) items

variable {encode} {header limit : Nat} {body : Nat → Nat} {bytes : List UInt8}

/-- The entry loop over items that fill it visits every item. -/
theorem entries_offsets {items : List α} {front back : List UInt8} (positive : 0 < header)
    (laid : bytes = front ++ (items.flatMap encode ++ back))
    (full : limit = front.length + (items.flatMap encode).length)
    (sized : ∀ {front item back}, item ∈ items → bytes = front ++ (encode item ++ back) →
      header + body front.length = (encode item).length) :
    entries header limit body front.length = offsets encode front.length items := by
  induction items generalizing front with
  | nil =>
      rw [entries_eq positive, if_neg (by rw [full]; simp; omega)]
      rfl
  | cons item items ih =>
      rw [List.flatMap_cons, List.append_assoc] at laid
      rw [List.flatMap_cons, List.length_append] at full
      have here := sized (List.mem_cons_self ..) laid
      have next : front.length + header + body front.length = (front ++ encode item).length := by
        rw [List.length_append]
        omega
      rw [entries_eq positive, if_pos (by omega), next, offsets]
      refine congrArg _ ?_
      rw [← List.length_append]
      refine ih ?_ ?_ fun mem => sized (List.mem_cons_of_mem _ mem)
      · rw [laid, List.append_assoc]
      · rw [full, List.length_append]
        omega

theorem forall_offsets {items : List α} {front back : List UInt8} {holds : Nat → Prop}
    (laid : bytes = front ++ (items.flatMap encode ++ back))
    (each : ∀ {front item more}, item ∈ items →
      bytes = front ++ (encode item ++ (more ++ back)) → holds front.length) :
    ∀ pos ∈ offsets encode front.length items, holds pos := by
  induction items generalizing front with
  | nil => exact fun pos mem => nomatch mem
  | cons item items ih =>
      rw [List.flatMap_cons, List.append_assoc] at laid
      intro pos mem
      rcases List.mem_cons.1 mem with rfl | later
      · exact each (List.mem_cons_self ..) laid
      · rw [← List.length_append] at later
        refine ih ?_ (fun mem => each (List.mem_cons_of_mem _ mem)) pos later
        rw [laid, List.append_assoc]

/-- What is read at every item. -/
theorem filterMap_offsets {β : Type} {items : List α} {front back : List UInt8}
    {read : Nat → Option β} {reported : α → β}
    (laid : bytes = front ++ (items.flatMap encode ++ back))
    (each : ∀ {front item back}, item ∈ items → bytes = front ++ (encode item ++ back) →
      read front.length = some (reported item)) :
    (offsets encode front.length items).filterMap read = items.map reported := by
  induction items generalizing front with
  | nil => rfl
  | cons item items ih =>
      rw [List.flatMap_cons, List.append_assoc] at laid
      rw [offsets, List.filterMap_cons_some (each (List.mem_cons_self ..) laid), List.map_cons,
        ← List.length_append, ih _ fun mem => each (List.mem_cons_of_mem _ mem)]
      rw [laid, List.append_assoc]

end Items
end Bytes
