import Mathlib.Data.List.Flatten
import UsbDvbs2.Bytes.Crc
import UsbDvbs2.Mpeg.Sections

/-! # Programme map sections

A programme map table as descriptors and elementary streams whose loops fill the
lengths that name them, and the table that is left when descriptors are dropped
from it.
-/

namespace Mpeg

open Bytes

/-- A descriptor of at most 255 bytes. -/
structure Descriptor where
  tag : UInt8
  body : List UInt8
  short : body.length < 256

def Descriptor.bytes (descriptor : Descriptor) : List UInt8 :=
  descriptor.tag :: UInt8.ofNat descriptor.body.length :: descriptor.body

theorem Descriptor.length_bytes (descriptor : Descriptor) :
    descriptor.bytes.length = 2 + octet descriptor.bytes 1 := by
  have counted : octet descriptor.bytes 1 = descriptor.body.length := by
    change (UInt8.ofNat descriptor.body.length).toNat = _
    rw [UInt8.toNat_ofNat']
    exact Nat.mod_eq_of_lt descriptor.short
  rw [counted, Descriptor.bytes, List.length_cons, List.length_cons]
  omega

/-- A descriptor loop. -/
def loop (descriptors : List Descriptor) : List UInt8 := descriptors.flatMap Descriptor.bytes

theorem length_loop_filter (descriptors : List Descriptor) (keep : Descriptor → Bool) :
    (loop (descriptors.filter keep)).length ≤ (loop descriptors).length :=
  (List.filter_sublist.flatMap Descriptor.bytes).length_le

/-- An elementary stream: its type, pid and loop length, and the loop. -/
structure Elementary where
  header : List UInt8
  descriptors : List Descriptor
  size : header.length = 5
  counts : be12 header 3 = (loop descriptors).length

def Elementary.bytes (stream : Elementary) : List UInt8 := stream.header ++ loop stream.descriptors

/-- The descriptors that are kept, and the length that names them. -/
def Elementary.keep (stream : Elementary) (keep : Descriptor → Bool) : Elementary where
  header := setBe12 stream.header 3 (loop (stream.descriptors.filter keep)).length
  descriptors := stream.descriptors.filter keep
  size := by rw [length_setBe12, stream.size]
  counts := by
    have shorter := length_loop_filter stream.descriptors keep
    have fits := be12_lt stream.header 3
    rw [stream.counts] at fits
    exact be12_setBe12 (by rw [stream.size]; decide) (Nat.lt_of_le_of_lt shorter fits)

theorem Elementary.length_keep (stream : Elementary) (keep : Descriptor → Bool) :
    (stream.keep keep).bytes.length ≤ stream.bytes.length := by
  have shorter := length_loop_filter stream.descriptors keep
  rw [Elementary.bytes, Elementary.bytes, List.length_append, List.length_append,
    (stream.keep keep).size, stream.size]
  exact Nat.add_le_add_left shorter 5

theorem Elementary.keep_of_all {stream : Elementary} {keep : Descriptor → Bool}
    (all : ∀ descriptor ∈ stream.descriptors, keep descriptor = true) :
    stream.keep keep = stream := by
  obtain ⟨header, descriptors, size, counts⟩ := stream
  have whole : descriptors.filter keep = descriptors := List.filter_eq_self.2 all
  simp only [Elementary.keep, whole, ← counts]
  rw [Elementary.mk.injEq]
  exact ⟨setBe12_self (by rw [size]; decide), rfl⟩

theorem Elementary.length_bytes (stream : Elementary) :
    stream.bytes.length = 5 + be12 stream.bytes 3 := by
  have size := stream.size
  have counted : be12 stream.bytes 3 = (loop stream.descriptors).length := by
    rw [Elementary.bytes, be12_append (by omega), stream.counts]
  rw [counted, Elementary.bytes, List.length_append, size]

/-- The elementary streams of a table. -/
def streamLoop (streams : List Elementary) : List UInt8 := streams.flatMap Elementary.bytes

theorem length_streamLoop_keep (streams : List Elementary) (keep : Descriptor → Bool) :
    (streamLoop (streams.map (·.keep keep))).length ≤ (streamLoop streams).length := by
  induction streams with
  | nil => exact Nat.le_refl _
  | cons stream streams ih =>
      have here := stream.length_keep keep
      simp only [streamLoop, List.map_cons, List.flatMap_cons, List.length_append] at ih ⊢
      exact Nat.add_le_add here ih

/-- A programme map section with consistent lengths and checksum. -/
structure ProgramMap where
  header : List UInt8
  descriptors : List Descriptor
  streams : List Elementary
  trailer : List UInt8
  headerSize : header.length = 12
  trailerSize : trailer.length = 4
  tableId : octet header 0 = 0x02
  infoLength : be12 header 10 = (loop descriptors).length
  sectionLength : declared header =
    12 + ((loop descriptors).length + (streamLoop streams).length) + 4
  crc : (crc32 (header ++ (loop descriptors ++ streamLoop streams))).toNat = be32 trailer 0

/-- Not a CA descriptor. -/
def Descriptor.isClear (descriptor : Descriptor) : Bool := descriptor.tag != 0x09

/-- Everything that the checksum is of. -/
def ProgramMap.body (table : ProgramMap) : List UInt8 :=
  table.header ++ (loop table.descriptors ++ streamLoop table.streams)

def ProgramMap.bytes (table : ProgramMap) : List UInt8 := table.body ++ table.trailer

def ProgramMap.service (table : ProgramMap) : UInt16 := be16 table.header 3

theorem ProgramMap.length_body (table : ProgramMap) :
    table.body.length =
      12 + ((loop table.descriptors).length + (streamLoop table.streams).length) := by
  rw [ProgramMap.body, List.length_append, List.length_append, table.headerSize]

theorem ProgramMap.length_bytes (table : ProgramMap) :
    table.bytes.length =
      12 + ((loop table.descriptors).length + (streamLoop table.streams).length) + 4 := by
  rw [ProgramMap.bytes, List.length_append, table.length_body, table.trailerSize]

/-- The header in front of what a table keeps. -/
def keptHeader (header : List UInt8) (info rest : Nat) : List UInt8 :=
  setBe12 (setBe12 header 10 info) 1 (12 + (info + rest) - 3 + 4)

theorem ProgramMap.declared_keptHeader (table : ProgramMap) (keep : Descriptor → Bool) :
    declared (keptHeader table.header (loop (table.descriptors.filter keep)).length
      (streamLoop (table.streams.map (·.keep keep))).length) =
      12 + ((loop (table.descriptors.filter keep)).length +
        (streamLoop (table.streams.map (·.keep keep))).length) + 4 := by
  have infos := length_loop_filter table.descriptors keep
  have streams := length_streamLoop_keep table.streams keep
  have fits := be12_lt table.header 1
  have declares := table.sectionLength
  rw [declared] at declares
  rw [declared, keptHeader, be12_setBe12 (by rw [length_setBe12, table.headerSize]; decide)
    (by omega)]
  omega

/-- The table that is left when only some descriptors are kept, its lengths and
its checksum made anew. -/
def ProgramMap.keep (table : ProgramMap) (keep : Descriptor → Bool) : ProgramMap where
  header := keptHeader table.header (loop (table.descriptors.filter keep)).length
    (streamLoop (table.streams.map (·.keep keep))).length
  descriptors := table.descriptors.filter keep
  streams := table.streams.map (·.keep keep)
  trailer := crcBytes (crc32 (keptHeader table.header
    (loop (table.descriptors.filter keep)).length
    (streamLoop (table.streams.map (·.keep keep))).length ++
      (loop (table.descriptors.filter keep) ++ streamLoop (table.streams.map (·.keep keep)))))
  headerSize := by rw [keptHeader, length_setBe12, length_setBe12, table.headerSize]
  trailerSize := rfl
  tableId := by
    rw [keptHeader, octet_setBe12_ne (by decide) (by decide),
      octet_setBe12_ne (by decide) (by decide), table.tableId]
  infoLength := by
    have shorter := length_loop_filter table.descriptors keep
    have fits := be12_lt table.header 10
    rw [table.infoLength] at fits
    rw [keptHeader, be12_setBe12_ne (by decide)]
    exact be12_setBe12 (by rw [table.headerSize]; decide) (Nat.lt_of_le_of_lt shorter fits)
  sectionLength := table.declared_keptHeader keep
  crc := (be32_crcBytes _).symm

/-- A table that keeps all its descriptors is the same, byte by byte. -/
theorem ProgramMap.keep_of_all {table : ProgramMap} {keep : Descriptor → Bool}
    (infos : ∀ descriptor ∈ table.descriptors, keep descriptor = true)
    (streams : ∀ stream ∈ table.streams, ∀ descriptor ∈ stream.descriptors,
      keep descriptor = true) : table.keep keep = table := by
  have length := table.sectionLength
  have size := table.headerSize
  have crc := table.crc
  have trailerSize := table.trailerSize
  have info := table.infoLength
  have kept : table.descriptors.filter keep = table.descriptors := List.filter_eq_self.2 infos
  have same : table.streams.map (·.keep keep) = table.streams := by
    have each : ∀ stream ∈ table.streams, stream.keep keep = stream := fun stream mem =>
      Elementary.keep_of_all (streams stream mem)
    rw [List.map_congr_left each, List.map_id']
  have header : keptHeader table.header (loop table.descriptors).length
      (streamLoop table.streams).length = table.header := by
    have total : 12 + ((loop table.descriptors).length + (streamLoop table.streams).length) - 3 +
        4 = be12 table.header 1 := by
      rw [declared] at length
      omega
    rw [keptHeader, ← info, setBe12_self (by rw [size]; decide), info, total,
      setBe12_self (by rw [size]; decide)]
  obtain ⟨tableHeader, descriptors, elementary, trailer⟩ := table
  simp only [ProgramMap.keep, kept, same, header] at *
  rw [ProgramMap.mk.injEq]
  exact ⟨rfl, rfl, rfl, crcBytes_eq trailerSize crc⟩

/-- What is kept once is kept again. -/
theorem ProgramMap.keep_keep (table : ProgramMap) (keep : Descriptor → Bool) :
    (table.keep keep).keep keep = table.keep keep := by
  refine ProgramMap.keep_of_all (fun descriptor mem => (List.mem_filter.1 mem).2) ?_
  intro stream mem descriptor inside
  obtain ⟨source, -, rfl⟩ := List.mem_map.1 mem
  exact (List.mem_filter.1 inside).2

theorem ProgramMap.service_keep (table : ProgramMap) (keep : Descriptor → Bool) :
    (table.keep keep).service = table.service := by
  simp only [ProgramMap.service, ProgramMap.keep, keptHeader]
  rw [be16_setBe12_ne (by decide), be16_setBe12_ne (by decide)]

theorem ProgramMap.crcValid (table : ProgramMap) : CrcValid table.bytes := by
  have size : table.bytes.length - 4 = table.body.length := by
    rw [ProgramMap.bytes, List.length_append, table.trailerSize]
    omega
  rw [CrcValid, size, ProgramMap.bytes, List.take_left' rfl, be32_append_right]
  exact table.crc

theorem ProgramMap.length_keep (table : ProgramMap) (keep : Descriptor → Bool) :
    (table.keep keep).bytes.length ≤ table.bytes.length := by
  have infos := length_loop_filter table.descriptors keep
  have streams := length_streamLoop_keep table.streams keep
  rw [ProgramMap.length_bytes, ProgramMap.length_bytes]
  simp only [ProgramMap.keep]
  omega

/-- A table is a section. -/
theorem ProgramMap.isSection {limit : Nat} {table : ProgramMap}
    (fits : table.bytes.length ≤ limit) : IsSection limit table.bytes := by
  have size := table.headerSize
  have split : table.bytes = table.header ++
      (loop table.descriptors ++ streamLoop table.streams ++ table.trailer) := by
    rw [ProgramMap.bytes, ProgramMap.body, List.append_assoc]
  have first : octet table.bytes 0 = 0x02 := by
    rw [split, octet_append (by rw [size]; decide), table.tableId]
  refine ⟨?_, ?_, fits, ?_⟩
  · rw [table.length_bytes]
    omega
  · rw [table.length_bytes, split, declared_append (by rw [size]; decide), table.sectionLength]
  · intro stuffing
    rw [octet, List.getD_eq_getElem?_getD, ← List.head?_eq_getElem?, stuffing] at first
    exact absurd first (by decide)

end Mpeg
